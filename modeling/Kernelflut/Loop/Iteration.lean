import Kernelflut.Evdi.Framebuffers
import Kernelflut.Foundations.Runs
import Kernelflut.Foundations.FifoDelivery
import Kernelflut.Pixelflut.Contract

/-!
# The main loop of `kernelflut.c`

`loop` gets an update from evdi and calls `pf_set_buf` once per dirty
rectangle, all on the same framebuffer, until something returns a nonzero code.
`loopIter` is one turn of it, a partial step on the state of the whole program:
it declines once `loop` has returned.

What the server has been sent is the log `calls` of the `pf_set_buf` calls; a
server consumes the commands of each connection in order and those of different
connections in any interleaving (`Consumes`).  With one connection there is
only one such order (`canvasAfter_of_oneConnection`).
-/

namespace Kernelflut.Loop

open Kernelflut.Pixelflut Kernelflut.Evdi FifoDelivery Overwrites

universe u

section Rects

variable {B : Type u}

/-- The `pf_set_buf` calls of one update: the calls made, the statics after the
last of them, and the code with which the rectangle loop ends. -/
structure Blits (B : Type u) where
  calls : List (Blit B)
  client : Client B
  ret : ℕ

/-- The loop over the rectangles of one update, with its early return. -/
def blitRects (mem : B → ℤ → Word) (fb : B) (width : ℤ) (bgcolor : Word) :
    Client B → List EvdiRect → Blits B
  | c, [] => ⟨[], c, 0⟩
  | c, rect :: rects =>
      let blit := pfSetBuf mem c fb width rect bgcolor
      if blit.ret ≠ 0 then ⟨[blit], blit.client, blit.ret⟩
      else
        let rest := blitRects mem fb width bgcolor blit.client rects
        ⟨blit :: rest.calls, rest.client, rest.ret⟩

/-- The calls of an update leave the pool usable. -/
theorem blitRects_ready {mem : B → ℤ → Word} {fb : B} {width : ℤ} {bgcolor : Word}
    {c : Client B} (ready : c.Ready) (rects : List EvdiRect) :
    (blitRects mem fb width bgcolor c rects).client.Ready := by
  induction rects generalizing c with
  | nil => exact ready
  | cons rect rects ih =>
      have ready' := pfSetBuf_ready mem fb width rect bgcolor ready
      simp only [blitRects]
      split
      · exact ready'
      · exact ih ready'

end Rects

/-! ## The state and the step -/

/-- The program while it is in `loop`. -/
structure Sys where
  buffers : Buffers
  client : Client FbId
  /-- Every `pf_set_buf` call so far. -/
  calls : List (Blit FbId)
  /-- The code `loop` has returned with. -/
  returned : Option ℕ

/-- `loop` is entered after `pf_connect` and `evdi_setup`. -/
def Sys.start (client : Client FbId) : Sys where
  buffers := Buffers.start
  client := client
  calls := []
  returned := none

/-- What happens to one turn of the loop: `doomed` is set at its start,
`evdi_get` returns an error, or it returns an update. -/
inductive LoopInput where
  | doomed
  | getFails (err : ℕ)
  | update (grab : Grab)

/-- One turn of `for (;;)`. -/
def loopIter (width : ℤ) (bgcolor : Word) (s : Sys) (input : LoopInput) :
    Option Sys :=
  match s.returned with
  | some _ => none
  | none =>
      match input with
      | .doomed => some { s with returned := some exceptionInt }
      | .getFails err =>
          -- `evdi_get` has toggled `fbid` before it can fail.
          some { s with
            buffers := { s.buffers with fbid := toggle s.buffers.fbid }
            returned := some err }
      | .update grab =>
          -- All calls of this turn see the buffers as this one grab left them.
          let (buffers, update) := evdiGet s.buffers grab
          let blits :=
            blitRects buffers.bufs update.fb width bgcolor s.client update.rects
          some { buffers
                 client := blits.client
                 calls := s.calls ++ blits.calls
                 returned := if blits.ret ≠ 0 then some blits.ret else none }

/-- The turns of the loop that get an update. -/
def updateStep (width : ℤ) (bgcolor : Word) (s : Sys) (grab : Grab) : Option Sys :=
  loopIter width bgcolor s (.update grab)

/-- **What a turn with an update does.** -/
theorem updateStep_eq_some {width : ℤ} {bgcolor : Word} {s s' : Sys} {grab : Grab} :
    updateStep width bgcolor s grab = some s' ↔
      s.returned = none ∧
        let e := (evdiGet s.buffers grab).1
        let blits :=
          blitRects e.bufs (toggle s.buffers.fbid) width bgcolor s.client grab.rects
        s' = { buffers := e
               client := blits.client
               calls := s.calls ++ blits.calls
               returned := if blits.ret ≠ 0 then some blits.ret else none } := by
  unfold updateStep loopIter
  cases hret : s.returned with
  | none => simp [eq_comm, evdiGet]
  | some code => simp

/-! ## Runs do not end by themselves -/

/-- `loop` is running, over a usable pool, and no performance test will end it. -/
structure Sys.Running (s : Sys) : Prop where
  returned : s.returned = none
  ready : s.client.Ready
  ptActive : s.client.ptActive = false

theorem blitRects_running {B : Type*} {mem : B → ℤ → Word} {fb : B} {width : ℤ}
    {bgcolor : Word} {c : Client B} (ready : c.Ready) (off : c.ptActive = false)
    (rects : List EvdiRect) :
    let blits := blitRects mem fb width bgcolor c rects
    blits.ret = 0 ∧ blits.client.ptActive = false := by
  induction rects generalizing c with
  | nil => exact ⟨rfl, off⟩
  | cons rect rects ih =>
      have ret := pfSetBuf_ret mem fb width rect bgcolor ready off
      obtain ⟨-, -, ptActive, -⟩ :=
        pfSetBuf_counters mem fb width rect bgcolor ready
      simp only [blitRects, ret, ne_eq, not_true_eq_false, if_false]
      exact ih (pfSetBuf_ready mem fb width rect bgcolor ready) (ptActive.trans off)

/-- Outside the performance test `loop` takes every update. -/
theorem Sys.Running.updateStep {s : Sys} (h : s.Running) (width : ℤ) (bgcolor : Word)
    (grab : Grab) : ∃ s', updateStep width bgcolor s grab = some s' ∧ s'.Running := by
  refine ⟨_, updateStep_eq_some.mpr ⟨h.returned, rfl⟩, ?_⟩
  obtain ⟨ret, off⟩ := blitRects_running h.ready h.ptActive grab.rects
  exact ⟨if_neg (not_not.mpr ret), blitRects_ready h.ready grab.rects, off⟩

/-! ## The server -/

/-- `received` is an order in which the server may consume everything sent so
far: first-in first-out on each connection. -/
def Sys.Consumes (s : Sys) (received : List (ℕ × Px)) : Prop :=
  Delivers (sendsOf s.calls) received

/-- The queues of the connections can be drained in exactly these orders. -/
theorem Sys.consumes_iff_drains {s : Sys} {received : List (ℕ × Px)} :
    s.Consumes received ↔
      Drains (onChannel (sendsOf s.calls)) received (fun _ => []) :=
  delivers_iff_drains

/-- The server's canvas once it has consumed `received`. -/
def canvasAfter (canvas : Canvas) (received : List (ℕ × Px)) : Canvas :=
  overwrite canvas (writes (received.map Prod.snd))

/-- The canvas when everything is consumed in the order it was sent. -/
def Sys.canvas (canvas : Canvas) (s : Sys) : Canvas :=
  overwrite canvas (writes (commandsOf s.calls))

theorem Sys.consumes_sendsOf (s : Sys) : s.Consumes (sendsOf s.calls) :=
  Delivers.refl _

theorem canvasAfter_sendsOf (s : Sys) (canvas : Canvas) :
    canvasAfter canvas (sendsOf s.calls) = s.canvas canvas := by
  rw [canvasAfter, map_snd_sendsOf, Sys.canvas]

/-- Every command so far was written on the only connection. -/
def Sys.OneConnection (s : Sys) : Prop :=
  s.client.Ready ∧ s.client.numConns = 1 ∧ ∀ w ∈ sendsOf s.calls, w.1 = 0

/-- A program that has just connected one socket. -/
def Sys.oneSocket (fd : ℕ) (ptActive : Bool) : Sys :=
  Sys.start { Client.connected [fd] with ptActive }

theorem running_oneSocket (fd : ℕ) : (Sys.oneSocket fd false).Running :=
  ⟨rfl, Nat.one_pos, rfl⟩

theorem oneConnection_oneSocket (fd : ℕ) (ptActive : Bool) :
    (Sys.oneSocket fd ptActive).OneConnection :=
  ⟨Nat.one_pos, rfl, by simp [Sys.oneSocket, Sys.start, sendsOf]⟩

/-- With one connection there is one order only. -/
theorem canvasAfter_of_oneConnection {s : Sys} (one : s.OneConnection)
    {received : List (ℕ × Px)} (h : s.Consumes received) (canvas : Canvas) :
    canvasAfter canvas received = s.canvas canvas := by
  rw [canvasAfter, h.eq_of_forall_channel one.2.2, map_snd_sendsOf, Sys.canvas]

end Kernelflut.Loop
