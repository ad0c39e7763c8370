import Kernelflut.Loop.OneRectangle

/-!
# Failed grabs

A grab that fails is an update without rectangles: `pf_set_buf` is not called,
so `last_buf` stays, but `evdi_get` has toggled `fbid` all the same.  With full
frames in between, what matters is the number of failures since the last frame.
After an odd number the next frame goes into the very buffer `last_buf` points
at, is compared with itself, and nothing is sent.

After an even number it goes into the *other* buffer and is compared with the last
one, as intended — unless a failed grab has written there.  Every second failure
since then was into that buffer, and the driver may have copied some rows of a new
frame before it failed.  These are taken for what the server shows.

So `lastFrame` keeps what the buffer of the last frame holds by now, and
`full_frames_iff` states the exact condition for the failures to be neutral over a
run.
-/

namespace Kernelflut.Loop

open Kernelflut.Pixelflut Kernelflut.Evdi PartialStep Overwrites

/-- The words of a frame that evdi has grabbed. -/
abbrev Frame := ℤ → Word

/-- What became of a grab: it failed, after it had copied something or nothing, or it
got the frame. -/
inductive FrameInput where
  | failed (copied : ℤ → Option Word)
  | frame (frame : Frame)

section Inputs

variable (width height : ℤ)

/-- The rectangle that covers the framebuffer. -/
def fullRect : EvdiRect := ⟨0, 0, width, height⟩

/-- Either the grab fails, or it refreshes the whole buffer. -/
def frameGrab : FrameInput → Grab
  | .failed copied => failedGrab copied
  | .frame frame =>
      { write := refresh width (fullRect width height) frame
        rects := [fullRect width height] }

/-- One turn of the loop on such an update, without a background colour. -/
def frameStep (s : Sys) (input : FrameInput) : Option Sys :=
  updateStep width pfNoBgcolor s (frameGrab width height input)

/-- The canvas showing a frame. -/
def showFrame (canvas : Canvas) (frame : Frame) : Canvas :=
  fun p => if p ∈ (fullRect width height).pixels then picture frame width p else canvas p

end Inputs

/-- The last frame, what the buffer it was grabbed into holds by now, and how many
grabs have failed since. -/
structure LastFrame where
  frame : Frame
  held : Frame
  failures : ℕ

/-- The first failure after a frame goes into the other buffer, the second into its
own, and so on. -/
def LastFrame.fail (last : LastFrame) (copied : ℤ → Option Word) : LastFrame where
  frame := last.frame
  held := if Odd last.failures then patch copied last.held else last.held
  failures := last.failures + 1

/-- The last frame of a run. -/
def lastFrame (inputs : List FrameInput) : Option LastFrame :=
  inputs.foldl
    (fun last input =>
      match input with
      | .failed copied => last.map fun last => last.fail copied
      | .frame frame => some ⟨frame, frame, 0⟩)
    none

@[simp] theorem lastFrame_nil : lastFrame [] = none := rfl

@[simp] theorem lastFrame_concat_failed (inputs : List FrameInput)
    (copied : ℤ → Option Word) :
    lastFrame (inputs ++ [.failed copied]) =
      (lastFrame inputs).map fun last => last.fail copied := by
  simp [lastFrame, List.foldl_append]

@[simp] theorem lastFrame_concat_frame (inputs : List FrameInput) (frame : Frame) :
    lastFrame (inputs ++ [.frame frame]) = some ⟨frame, frame, 0⟩ := by
  simp [lastFrame, List.foldl_append]

def FrameInput.isFrame : FrameInput → Bool
  | .failed _ => false
  | .frame _ => true

/-- The run without its failed grabs. -/
def successes (inputs : List FrameInput) : List FrameInput :=
  inputs.filter FrameInput.isFrame

/-- Leaving the failures out keeps the last frame, and it is held as it was. -/
theorem lastFrame_successes (inputs : List FrameInput) :
    lastFrame (successes inputs) =
      (lastFrame inputs).map fun last => ⟨last.frame, last.frame, 0⟩ := by
  induction inputs using List.reverseRecOn with
  | nil => rfl
  | append_singleton inputs input ih =>
      rw [successes, List.filter_append]
      cases input with
      | failed copied =>
          show lastFrame (successes inputs ++ []) = _
          rw [List.append_nil, ih, lastFrame_concat_failed, Option.map_map]
          rfl
      | frame frame =>
          show lastFrame (successes inputs ++ [.frame frame]) = _
          rw [lastFrame_concat_frame, lastFrame_concat_frame]
          rfl

/-! ## What the server shows -/

variable {width height : ℤ}

/-- What the server should show after a run. -/
def frameShown (width height : ℤ) (canvas : Canvas) (inputs : List FrameInput) :
    Canvas :=
  (lastFrame inputs).elim canvas fun last => showFrame width height canvas last.frame

theorem frameShown_successes (canvas : Canvas) (inputs : List FrameInput) :
    frameShown width height canvas (successes inputs) =
      frameShown width height canvas inputs := by
  unfold frameShown
  rw [lastFrame_successes]
  cases lastFrame inputs <;> rfl

/-- After a frame the server shows it on the whole framebuffer, and so it would
in the run without the failed grabs. -/
def Neutral (width height : ℤ) (start : Sys) (canvas : Canvas)
    (before : List FrameInput) (input : FrameInput) (s : Sys) : Prop :=
  ∀ frame, input = .frame frame → ∀ received, s.Consumes received →
    (∀ p ∈ (fullRect width height).pixels,
      canvasAfter canvas received p = picture frame width p) ∧
    ∀ t received', run (frameStep width height) start (successes (before ++ [input])) =
        some t → t.Consumes received' →
      canvasAfter canvas received = canvasAfter canvas received'

/-- **The condition.**  Where the buffer of the last frame holds the word of the new one
by now, the last frame had its colour there.  After an odd number of failures this
buffer is the one that the new frame went into, and holds it everywhere. -/
def TrulyCompared (width height : ℤ) (before : List FrameInput) (input : FrameInput) :
    Prop :=
  ∀ frame, input = .frame frame → ∀ last, lastFrame before = some last →
    ∀ p ∈ (fullRect width height).pixels,
      Odd last.failures ∨
          last.held (p.2 * width + p.1) = frame (p.2 * width + p.1) →
        picture last.frame width p = picture frame width p

/-- What a run keeps as long as the failures are neutral. -/
structure AfterFrames (width height : ℤ) (canvas : Canvas)
    (before : List FrameInput) (s : Sys) : Prop where
  one : s.OneConnection
  shows : s.canvas canvas = frameShown width height canvas before
  first : s.returned = none → lastFrame before = none → s.client.lastBuf = none
  later : s.returned = none → ∀ last, lastFrame before = some last →
    s.client.lastBuf = some (toggle^[last.failures] s.buffers.fbid) ∧
    ∀ p ∈ (fullRect width height).pixels,
      s.buffers.bufs (toggle^[last.failures] s.buffers.fbid) (p.2 * width + p.1) =
        last.held (p.2 * width + p.1)

theorem afterFrames_start (canvas : Canvas) (fd : ℕ) (ptActive : Bool) :
    AfterFrames width height canvas [] (Sys.oneSocket fd ptActive) where
  one := oneConnection_oneSocket fd ptActive
  shows := rfl
  first := fun _ _ => rfl
  later := by simp

section Step

variable {canvas : Canvas} {before : List FrameInput} {s s' : Sys} {frame : Frame}

/-- The buffer `evdi_get` hands out holds the frame. -/
theorem grabbed_frame (e : Buffers) {p : Pos} (hp : p ∈ (fullRect width height).pixels) :
    (evdiGet e (frameGrab width height (.frame frame))).1.bufs (toggle e.fbid)
        (p.2 * width + p.1) =
      frame (p.2 * width + p.1) := by
  rw [evdiGet_bufs_self]
  exact refresh_of_mem (le_refl 0) (le_refl width) hp

/-- What the turn of a frame skips is shown already exactly under the
condition. -/
theorem skipsTruly_iff_trulyCompared (inv : AfterFrames width height canvas before s)
    (running : s.returned = none) :
    SkipsTruly (evdiGet s.buffers (frameGrab width height (.frame frame))).1.bufs
        s.client.lastBuf (toggle s.buffers.fbid) width (fullRect width height)
        (s.canvas canvas) ↔
      TrulyCompared width height before (.frame frame) := by
  let e := (evdiGet s.buffers (frameGrab width height (.frame frame))).1
  show SkipsTruly e.bufs s.client.lastBuf _ _ _ _ ↔ _
  simp only [SkipsTruly, TrulyCompared, FrameInput.frame.injEq, forall_eq']
  cases known : lastFrame before with
  | none => simp [inv.first running known]
  | some last =>
      obtain ⟨lastBuf, holds⟩ := inv.later running last known
      have onServer : ∀ p ∈ (fullRect width height).pixels,
          s.canvas canvas p = picture last.frame width p := by
        intro p hp
        rw [inv.shows, frameShown, known]
        exact if_pos hp
      simp only [lastBuf, Option.some.injEq, forall_eq']
      refine forall₂_congr fun p hp => ?_
      have grabbed : e.bufs (toggle s.buffers.fbid) (p.2 * width + p.1) =
          frame (p.2 * width + p.1) := grabbed_frame s.buffers hp
      rw [onServer p hp, show picture (e.bufs (toggle s.buffers.fbid)) width p =
        picture frame width p from congrArg colourOf grabbed]
      rcases Nat.even_or_odd last.failures with even | odd
      · -- The frame is compared with what is left of the last one.
        have left : e.bufs (toggle^[last.failures] s.buffers.fbid) (p.2 * width + p.1) =
            last.held (p.2 * width + p.1) := by
          rw [← holds p hp, toggle_involutive.iterate_even even]
          exact congrFun (evdiGet_bufs_other s.buffers _) _
        simp only [left, grabbed, e, Nat.not_odd_iff_even.mpr even, false_or]
      · -- The frame is compared with itself.
        simp [toggle_involutive.iterate_odd odd, odd]

/-- **One turn with a frame** shows it exactly under the condition, and touches
nothing outside the framebuffer. -/
theorem shows_frame_iff (inv : AfterFrames width height canvas before s)
    (h : frameStep width height s (.frame frame) = some s') :
    (s'.canvas canvas = frameShown width height canvas (before ++ [.frame frame]) ↔
        TrulyCompared width height before (.frame frame)) ∧
      ((∀ p ∈ (fullRect width height).pixels,
          s'.canvas canvas p = picture frame width p) ↔
        TrulyCompared width height before (.frame frame)) := by
  obtain ⟨running, -⟩ := updateStep_eq_some.mp h
  obtain ⟨shows, outside⟩ := updateStep_oneRect canvas
    (show (frameGrab width height (.frame frame)).rects = [fullRect width height] from rfl)
    (le_refl 0) inv.one.1 h
  rw [skipsTruly_iff_trulyCompared inv running] at shows
  have onFrame : (∀ p ∈ (fullRect width height).pixels,
      s'.canvas canvas p = picture frame width p) ↔
        TrulyCompared width height before (.frame frame) := by
    rw [← shows]
    refine forall₂_congr fun p hp => ?_
    rw [picture, picture, grabbed_frame s.buffers hp]
  refine ⟨?_, onFrame⟩
  rw [← onFrame, frameShown, lastFrame_concat_frame]
  show s'.canvas canvas = showFrame width height canvas frame ↔ _
  constructor
  · intro shown p hp
    rw [shown]
    exact if_pos hp
  · intro shown
    funext p
    unfold showFrame
    split
    · next hp => exact shown p hp
    · next hp =>
        rw [outside p hp, inv.shows, frameShown]
        cases lastFrame before with
        | none => rfl
        | some last => exact if_neg hp

/-- A failed grab changes which buffer comes next, and what is in one of them. -/
theorem AfterFrames.failure {copied : ℤ → Option Word}
    (inv : AfterFrames width height canvas before s)
    (h : frameStep width height s (.failed copied) = some s') :
    AfterFrames width height canvas (before ++ [.failed copied]) s' := by
  obtain ⟨running, rfl⟩ := updateStep_noRect
    (show (frameGrab width height (.failed copied)).rects = [] from rfl) h
  refine ⟨inv.one, ?_, ?_, ?_⟩
  · refine inv.shows.trans ?_
    rw [frameShown, frameShown, lastFrame_concat_failed]
    cases lastFrame before <;> rfl
  · intro _ unknown
    rw [lastFrame_concat_failed, Option.map_eq_none_iff] at unknown
    exact inv.first running unknown
  · intro _ last known
    rw [lastFrame_concat_failed, Option.map_eq_some_iff] at known
    obtain ⟨last, known, rfl⟩ := known
    obtain ⟨lastBuf, holds⟩ := inv.later running last known
    -- One failure more and one toggle more name the same buffer.
    simp only [LastFrame.fail, evdiGet_fbid, Function.iterate_succ_apply, toggle_toggle]
    refine ⟨lastBuf, fun p hp => ?_⟩
    rcases Nat.even_or_odd last.failures with even | odd
    · rw [if_neg (Nat.not_odd_iff_even.mpr even), ← holds p hp,
        toggle_involutive.iterate_even even]
      exact congrFun (evdiGet_bufs_other s.buffers _) _
    · rw [if_pos odd, toggle_involutive.iterate_odd odd, evdiGet_bufs_self]
      have := holds p hp
      rw [toggle_involutive.iterate_odd odd] at this
      exact congrArg (copied (p.2 * width + p.1)).getD this

/-- A frame under the condition becomes the last one. -/
theorem AfterFrames.success (inv : AfterFrames width height canvas before s)
    (h : frameStep width height s (.frame frame) = some s')
    (ok : TrulyCompared width height before (.frame frame)) :
    AfterFrames width height canvas (before ++ [.frame frame]) s' := by
  have single : (frameGrab width height (.frame frame)).rects =
      [fullRect width height] := rfl
  obtain ⟨-, buffers, -, -, lastBuf⟩ := updateStep_singleton single h
  refine ⟨oneConnection_updateStep single inv.one h,
    (shows_frame_iff inv h).1.mpr ok, ?_, ?_⟩
  · simp
  · intro running last known
    rw [lastFrame_concat_frame] at known
    cases known
    rw [Function.iterate_zero_apply, buffers, evdiGet_fbid]
    exact ⟨lastBuf running, fun p hp => grabbed_frame s.buffers hp⟩

theorem AfterFrames.step {input : FrameInput}
    (inv : AfterFrames width height canvas before s)
    (h : frameStep width height s input = some s')
    (ok : TrulyCompared width height before input) :
    AfterFrames width height canvas (before ++ [input]) s' := by
  cases input with
  | failed copied => exact inv.failure h
  | frame frame => exact inv.success h ok

end Step

/-! ## Runs -/

/-- Without failures the condition holds of itself. -/
theorem afterFrames_successes (canvas : Canvas) (fd : ℕ) (ptActive : Bool)
    (inputs : List FrameInput) {t : Sys}
    (h : run (frameStep width height) (Sys.oneSocket fd ptActive)
      (successes inputs) = some t) :
    AfterFrames width height canvas (successes inputs) t := by
  induction inputs using List.reverseRecOn generalizing t with
  | nil =>
      cases h
      exact afterFrames_start canvas fd ptActive
  | append_singleton inputs input ih =>
      unfold successes at h ih ⊢
      rw [List.filter_append] at h ⊢
      cases input with
      | failed copied =>
          rw [show [FrameInput.failed copied].filter FrameInput.isFrame = [] from rfl,
            List.append_nil] at h ⊢
          exact ih h
      | frame frame =>
          obtain ⟨t', hbefore, hstep⟩ := run_concat_eq_some.mp h
          refine (ih hbefore).success hstep fun _ same last known p _ compared => ?_
          cases same
          have := known.symm.trans (lastFrame_successes inputs)
          obtain ⟨_, -, eq⟩ := Option.map_eq_some_iff.mp this.symm
          cases eq
          -- The last frame is where it was put.
          exact congrArg colourOf (compared.resolve_left Nat.not_odd_zero)

theorem neutral_iff_trulyCompared {canvas : Canvas} {before : List FrameInput}
    {s s' : Sys} {input : FrameInput} (fd : ℕ) (ptActive : Bool)
    (inv : AfterFrames width height canvas before s)
    (h : frameStep width height s input = some s') :
    Neutral width height (Sys.oneSocket fd ptActive) canvas before input s' ↔
      TrulyCompared width height before input := by
  cases input with
  | failed copied => simp [Neutral, TrulyCompared]
  | frame frame =>
      have one : s'.OneConnection := oneConnection_updateStep
        (show (frameGrab width height (.frame frame)).rects = [fullRect width height]
          from rfl) inv.one h
      obtain ⟨whole, onFrame⟩ := shows_frame_iff inv h
      constructor
      · intro neutral
        have shown := neutral frame rfl _ s'.consumes_sendsOf
        rw [canvasAfter_sendsOf] at shown
        exact onFrame.mp shown.1
      · intro ok frame' hframe received consumes
        cases hframe
        rw [canvasAfter_of_oneConnection one consumes]
        refine ⟨onFrame.mpr ok, fun t received' hrun consumes' => ?_⟩
        have undisturbed := afterFrames_successes canvas fd ptActive _ hrun
        rw [canvasAfter_of_oneConnection undisturbed.one consumes', undisturbed.shows,
          frameShown_successes]
        exact whole.mpr ok

/-- **Failed grabs.**  Over one connection, without a background colour and with full
frames, the server shows every frame, exactly as in the run without the failed grabs, if
and only if each frame is truly compared: whatever the failed grabs left in the buffer of
the last frame, and whether or not it is the buffer of the new one. -/
theorem full_frames_iff (width height : ℤ) (canvas : Canvas) (fd : ℕ)
    (ptActive : Bool) (inputs : List FrameInput) :
    EachStep (frameStep width height)
        (fun before _ input s' =>
          Neutral width height (Sys.oneSocket fd ptActive) canvas before input s')
        (Sys.oneSocket fd ptActive) inputs ↔
      EachStep (frameStep width height)
        (fun before _ input _ => TrulyCompared width height before input)
        (Sys.oneSocket fd ptActive) inputs :=
  eachStep_iff_of_decided (AfterFrames width height canvas)
    (afterFrames_start canvas fd ptActive)
    (fun _ inv h => neutral_iff_trulyCompared fd ptActive inv h)
    (fun _ inv h ok => inv.step h ok)

/-- A white frame, and a failed grab. -/
def whiteFail : List FrameInput := [.frame fun _ => 0xffffff, .failed fun _ => none]

/-- The black frame that follows is compared with itself: the server keeps showing the
white one. -/
theorem not_neutral_whiteFailBlack :
    ¬ ∀ (canvas : Canvas) (inputs : List FrameInput),
      EachStep (frameStep 800 600)
        (fun before _ input s' =>
          Neutral 800 600 (Sys.oneSocket 3 false) canvas before input s')
        (Sys.oneSocket 3 false) inputs := by
  intro claim
  let canvas : Canvas := fun _ => 0
  let white : FrameInput := .frame fun _ => 0xffffff
  let black : FrameInput := .frame fun _ => 0
  obtain ⟨s, hrun, -⟩ := exists_run_of_progress
    (fun input h => h.updateStep 800 pfNoBgcolor (frameGrab 800 600 input))
    (running_oneSocket 3) (whiteFail ++ [black])
  obtain ⟨s₂, hbefore, hstep, neutral⟩ :=
    EachStep.last whiteFail (claim canvas (whiteFail ++ [black])) hrun
  obtain ⟨s₁, hwhite, hfail⟩ := run_concat_eq_some.mp
    (show run (frameStep 800 600) _ ([white] ++ [.failed fun _ => none]) = some s₂ from
      hbefore)
  have inv₁ : AfterFrames 800 600 canvas [white] s₁ :=
    afterFrames_successes canvas 3 false [white] hwhite
  have inv₂ : AfterFrames 800 600 canvas whiteFail s₂ := inv₁.failure hfail
  have known : lastFrame whiteFail = some ⟨fun _ => 0xffffff, fun _ => 0xffffff, 1⟩ := by
    simp [whiteFail, lastFrame, LastFrame.fail]
  have same := (neutral_iff_trulyCompared 3 false inv₂ hstep).mp neutral _ rfl _ known
  exact absurd (same (0, 0) (by decide) (Or.inl odd_one)) (by decide)

end Kernelflut.Loop
