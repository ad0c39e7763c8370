import Kernelflut.Loop.OneRectangle

/-!
# The performance test

With `-p`, `kernelflut` is to "do a performance test (time five screen updates)"
and stop.  The clock and the counter of the trials are in `pf_set_buf`, though,
which `loop` calls for every rectangle: a trial is one call, from its beginning
to its end, and the fifth call ends the test.

`timed_updates_iff` says when that is what was promised: exactly when no update
has more than one rectangle.  While this is so the counter agrees with the
number of updates seen (`Sys.Timing`); an update with two rectangles is measured
in two pieces, and the counter is ahead from then on.
-/

namespace Kernelflut.Loop

open Kernelflut.Pixelflut Kernelflut.Evdi PartialStep

/-- How many updates had something to blit. -/
def screenUpdates (grabs : List Grab) : ℕ := grabs.countP fun grab => grab.rects ≠ []

theorem screenUpdates_concat (grabs : List Grab) (grab : Grab) :
    screenUpdates (grabs ++ [grab]) =
      screenUpdates grabs + if grab.rects = [] then 0 else 1 := by
  rw [screenUpdates, List.countP_append, List.countP_singleton, screenUpdates]
  by_cases empty : grab.rects = [] <;> simp [empty]

/-- **What the test promises** of a turn of the loop: all rectangles of the update
are blitted, `loop` returns after the fifth update that has any, and a trial that
was recorded has its place in `pt_trials` and covers the whole update, the calls
of the turn being the one call it measured. -/
def TimesUpdate (before : List Grab) (s : Sys) (grab : Grab) (s' : Sys) : Prop :=
  s'.returned =
      (if screenUpdates (before ++ [grab]) = 5 then some exceptionPtFinished else none) ∧
    ∃ calls, s'.calls = s.calls ++ calls ∧ calls.length = grab.rects.length ∧
      ∀ blit ∈ calls, ∀ trial, blit.trial = some trial → trial < 5 ∧ calls = [blit]

/-- The test is on, and `pt_trial` is the number of updates so far. -/
structure Sys.Timing (before : List Grab) (s : Sys) : Prop where
  ready : s.client.Ready
  ptActive : s.client.ptActive = true
  counts : s.returned = none →
    s.client.ptTrial = screenUpdates before ∧ screenUpdates before < 5

theorem timing_start (fd : ℕ) (fds : List ℕ) :
    (Sys.start { Client.connected (fd :: fds) with ptActive := true }).Timing [] where
  ready := Nat.succ_pos _
  ptActive := rfl
  counts := fun _ => ⟨rfl, by decide⟩

section Step

variable {width : ℤ} {bgcolor : Word} {before : List Grab} {s s' : Sys} {grab : Grab}

/-- An update without rectangles is not timed. -/
theorem Sys.Timing.noRect (timing : s.Timing before) (empty : grab.rects = [])
    (h : updateStep width bgcolor s grab = some s') :
    TimesUpdate before s grab s' ∧ s'.Timing (before ++ [grab]) := by
  obtain ⟨running, rfl⟩ := updateStep_noRect empty h
  obtain ⟨count, below⟩ := timing.counts running
  have same : screenUpdates (before ++ [grab]) = screenUpdates before := by
    rw [screenUpdates_concat, if_pos empty, Nat.add_zero]
  refine ⟨⟨?_, [], (List.append_nil _).symm, by rw [empty]; rfl, by simp⟩,
    timing.ready, timing.ptActive, fun _ => ?_⟩
  · rw [same, if_neg below.ne]
    exact running
  · rw [same]
    exact ⟨count, below⟩

/-- An update with one rectangle is one call, and one trial. -/
theorem Sys.Timing.oneRect (timing : s.Timing before) {rect : EvdiRect}
    (single : grab.rects = [rect]) (h : updateStep width bgcolor s grab = some s') :
    TimesUpdate before s grab s' ∧ s'.Timing (before ++ [grab]) := by
  obtain ⟨running, rfl⟩ := updateStep_eq_some.mp h
  obtain ⟨count, below⟩ := timing.counts running
  have next : screenUpdates (before ++ [grab]) = screenUpdates before + 1 := by
    rw [screenUpdates_concat, if_neg (by simp [single])]
  obtain ⟨ret, -, ptTrial, trial⟩ := pfSetBuf_end (evdiGet s.buffers grab).1.bufs
    (toggle s.buffers.fbid) width rect bgcolor timing.ready
  have last : LastTrial s.client ↔ screenUpdates before + 1 = 5 := by
    rw [LastTrial, count]
    exact and_iff_right timing.ptActive
  rw [if_pos timing.ptActive] at ptTrial trial
  simp only [single, blitRects_singleton]
  refine ⟨⟨?_, [_], rfl, by rw [single]; rfl, ?_⟩, ?_, ?_, ?_⟩
  · simp only [ret, next, last]
    split <;> rfl
  · intro blit hblit number hnumber
    obtain rfl := List.mem_singleton.mp hblit
    rw [trial, count] at hnumber
    exact ⟨Option.some.inj hnumber ▸ below, rfl⟩
  · exact pfSetBuf_ready _ _ _ _ _ timing.ready
  · exact (pfSetBuf_counters _ _ _ _ _ timing.ready).2.2.1.trans timing.ptActive
  · -- The loop goes on, so this was not the fifth update.
    intro continues
    have notLast : ¬ screenUpdates before + 1 = 5 := by
      intro fifth
      simp [ret, last, fifth, exceptionPtFinished] at continues
    rw [next, ptTrial, count]
    exact ⟨rfl, by omega⟩

/-- An update with more rectangles is measured in pieces, or not blitted to its
end. -/
theorem Sys.Timing.not_timesUpdate (timing : s.Timing before) {rect rect' : EvdiRect}
    {rects : List EvdiRect} (several : grab.rects = rect :: rect' :: rects)
    (h : updateStep width bgcolor s grab = some s') : ¬ TimesUpdate before s grab s' := by
  obtain ⟨running, rfl⟩ := updateStep_eq_some.mp h
  obtain ⟨-, -, -, trial⟩ := pfSetBuf_end (evdiGet s.buffers grab).1.bufs
    (toggle s.buffers.fbid) width rect bgcolor timing.ready
  rw [if_pos timing.ptActive] at trial
  rintro ⟨-, calls, logged, all, covers⟩
  obtain rfl := List.append_cancel_left logged
  -- The first call has recorded a trial, so it was the only one.
  have first : pfSetBuf (evdiGet s.buffers grab).1.bufs s.client (toggle s.buffers.fbid)
      width rect bgcolor ∈ (blitRects (evdiGet s.buffers grab).1.bufs
        (toggle s.buffers.fbid) width bgcolor s.client grab.rects).calls := by
    rw [several, blitRects]
    simp only
    split <;> exact List.mem_cons_self
  rw [(covers _ first _ trial).2, several] at all
  simp at all

/-- **One turn** keeps the promise exactly when its update has at most one
rectangle. -/
theorem Sys.Timing.timesUpdate_iff (timing : s.Timing before)
    (h : updateStep width bgcolor s grab = some s') :
    TimesUpdate before s grab s' ↔ grab.rects.length ≤ 1 := by
  match several : grab.rects with
  | [] => exact iff_of_true (timing.noRect several h).1 (by simp)
  | [rect] => exact iff_of_true (timing.oneRect several h).1 (by simp)
  | rect :: rect' :: rects =>
      exact iff_of_false (timing.not_timesUpdate several h) (by simp)

theorem Sys.Timing.step (timing : s.Timing before) (few : grab.rects.length ≤ 1)
    (h : updateStep width bgcolor s grab = some s') : s'.Timing (before ++ [grab]) := by
  match several : grab.rects with
  | [] => exact (timing.noRect several h).2
  | [rect] => exact (timing.oneRect several h).2
  | rect :: rect' :: rects => simp [several] at few

end Step

/-- **When the performance test times five screen updates**: every turn keeps the
promise exactly when no update has more than one rectangle. -/
theorem timed_updates_iff (width : ℤ) (bgcolor : Word) (fd : ℕ) (fds : List ℕ)
    (grabs : List Grab) :
    EachStep (updateStep width bgcolor) TimesUpdate
        (Sys.start { Client.connected (fd :: fds) with ptActive := true }) grabs ↔
      EachStep (updateStep width bgcolor) (fun _ _ grab _ => grab.rects.length ≤ 1)
        (Sys.start { Client.connected (fd :: fds) with ptActive := true }) grabs :=
  eachStep_iff_of_decided (fun before s => s.Timing before) (timing_start fd fds)
    (fun _ timing h => timing.timesUpdate_iff h) (fun _ timing h few => timing.step few h)

/-- An update that reports two windows side by side. -/
def twoWindows : Grab where
  write := id
  rects := [⟨0, 0, 1, 1⟩, ⟨1, 0, 2, 1⟩]

/-- Three such updates: `loop` returns within the third, after five calls, and the
second window of that update is not blitted. -/
theorem not_timed_two_windows :
    ¬ ∀ grabs : List Grab, (∀ grab ∈ grabs, grab.rects.length ≤ 16) →
      EachStep (updateStep 800 pfNoBgcolor) TimesUpdate
        (Sys.start { Client.connected [3] with ptActive := true }) grabs := by
  intro claim
  have returns : (run (updateStep 800 pfNoBgcolor)
      (Sys.start { Client.connected [3] with ptActive := true })
      [twoWindows, twoWindows, twoWindows]).map
        (fun s => (s.returned, s.calls.length)) = some (some exceptionPtFinished, 5) := by
    decide
  obtain ⟨s, hrun, outcome⟩ := Option.map_eq_some_iff.mp returns
  obtain ⟨-, -, -, promised, -⟩ := EachStep.last [twoWindows, twoWindows]
    (claim [twoWindows, twoWindows, twoWindows] (by decide)) hrun
  rw [(Prod.mk.inj outcome).1] at promised
  exact absurd promised (by decide)

end Kernelflut.Loop
