import Kernelflut.Loop.Iteration

/-!
# Turns of the loop with one rectangle

The statements about single-rectangle updates all come down to what one turn does
to the canvas of a server that is fed through one connection and without a
background colour.  `updateStep_oneRect` gives the turn's effect: the
rectangle shows the new frame exactly when every pixel the comparison with
`last_buf` skips is shown already, and the rest of the canvas is as before.
`updateStep_noRect` is the turn of an update without rectangles, which only
moves evdi's buffers on.
-/

namespace Kernelflut.Loop

open Kernelflut.Pixelflut Kernelflut.Evdi FifoDelivery Overwrites

section Rects

variable {B : Type*} {mem : B → ℤ → Word} {fb : B} {width : ℤ} {bgcolor : Word}
  {c : Client B}

@[simp] theorem blitRects_nil :
    blitRects mem fb width bgcolor c [] = ⟨[], c, 0⟩ := rfl

/-- One rectangle is one call, whatever it returns. -/
theorem blitRects_singleton (rect : EvdiRect) :
    blitRects mem fb width bgcolor c [rect] =
      let blit := pfSetBuf mem c fb width rect bgcolor
      ⟨[blit], blit.client, blit.ret⟩ := by
  simp only [blitRects]
  split
  · rfl
  · next h => simp only [not_not.mp h]

/-- Commands are written on connections of the pool. -/
theorem index_lt_of_mem_sends (ready : c.Ready) {rect : EvdiRect} {w : ℕ × Px}
    (h : w ∈ sends (pfSetBuf mem c fb width rect bgcolor).turns) :
    w.1 < c.numConns := by
  obtain ⟨k, v, -, -, rfl⟩ := (mem_sends_pfSetBuf ready).mp h
  exact Nat.mod_lt _ ready.numConns_pos

end Rects

variable {width : ℤ} {s s' : Sys} {grab : Grab}

/-- A turn without rectangles leaves the client and the server alone. -/
theorem updateStep_noRect {bgcolor : Word} (empty : grab.rects = [])
    (h : updateStep width bgcolor s grab = some s') :
    s.returned = none ∧ s' = { s with buffers := (evdiGet s.buffers grab).1 } := by
  obtain ⟨running, rfl⟩ := updateStep_eq_some.mp h
  simp [empty, running]

/-- What a turn with one rectangle leaves behind, for any background setting. -/
theorem updateStep_singleton {bgcolor : Word} {rect : EvdiRect}
    (single : grab.rects = [rect]) (h : updateStep width bgcolor s grab = some s') :
    let e := (evdiGet s.buffers grab).1
    let blit :=
      pfSetBuf e.bufs s.client (toggle s.buffers.fbid) width rect bgcolor
    s.returned = none ∧ s'.buffers = e ∧ s'.client = blit.client ∧
      s'.calls = s.calls ++ [blit] ∧
      (s'.returned = none → s'.client.lastBuf = some (toggle s.buffers.fbid)) := by
  obtain ⟨running, rfl⟩ := updateStep_eq_some.mp h
  simp only [single, blitRects_singleton, true_and, running]
  intro returned
  refine pfSetBuf_lastBuf ?_
  by_contra nonzero
  simp [nonzero] at returned

/-- The canvas of a server that consumes everything in order. -/
theorem canvas_updateStep {bgcolor : Word} {rect : EvdiRect} (canvas : Canvas)
    (single : grab.rects = [rect]) (h : updateStep width bgcolor s grab = some s') :
    s'.canvas canvas =
      overwrite (s.canvas canvas) (writes (commands
        (pfSetBuf (evdiGet s.buffers grab).1.bufs s.client (toggle s.buffers.fbid)
          width rect bgcolor).turns)) := by
  obtain ⟨-, -, -, calls, -⟩ := updateStep_singleton single h
  rw [Sys.canvas, Sys.canvas, calls, commandsOf_append, writes_append,
    overwrite_append]
  simp [commandsOf]

/-- A turn keeps the commands on the one connection. -/
theorem oneConnection_updateStep {bgcolor : Word} {rect : EvdiRect}
    (single : grab.rects = [rect]) (one : s.OneConnection)
    (h : updateStep width bgcolor s grab = some s') : s'.OneConnection := by
  obtain ⟨ready, size, channel⟩ := one
  obtain ⟨-, -, client, calls, -⟩ := updateStep_singleton single h
  rw [Sys.OneConnection, client, calls]
  refine ⟨pfSetBuf_ready _ _ _ _ _ ready, ?_, ?_⟩
  · exact (pfSetBuf_counters _ _ _ _ _ ready).2.1.trans size
  · intro w hw
    rw [sendsOf_append, List.mem_append] at hw
    rcases hw with old | new
    · exact channel w old
    · have := index_lt_of_mem_sends ready (by simpa [sendsOf] using new)
      omega

/-- **One turn, one rectangle, one connection, no background colour.** -/
theorem updateStep_oneRect {rect : EvdiRect} (canvas : Canvas)
    (single : grab.rects = [rect]) (hy1 : 0 ≤ rect.y1) (ready : s.client.Ready)
    (h : updateStep width pfNoBgcolor s grab = some s') :
    let e := (evdiGet s.buffers grab).1
    let frame := picture (e.bufs (toggle s.buffers.fbid)) width
    ((∀ p ∈ rect.pixels, s'.canvas canvas p = frame p) ↔
      SkipsTruly e.bufs s.client.lastBuf (toggle s.buffers.fbid) width rect
        (s.canvas canvas)) ∧
    ∀ p ∉ rect.pixels, s'.canvas canvas p = s.canvas canvas p := by
  rw [canvas_updateStep canvas single h]
  exact overwrite_pfNoBgcolor _ _ _ ready hy1 (s.canvas canvas)

end Kernelflut.Loop
