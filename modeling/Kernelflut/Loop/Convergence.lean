import Kernelflut.Loop.OneRectangle

/-!
# Several connections

`pf_set_buf` takes the connections of the pool in turn, skipped pixels
included, and nothing orders the commands on different connections: a pixel
whose successive colours travel on different connections may end up with any of
them.  On a rectangle that is blitted again and again, the `k`-th pixel of call
`t` is sent on connection `(a + t * area + k) % n`, so all colours of a pixel
share one connection exactly when the pool size `n` divides the area.

`converges_iff` is that dividing line: for such rectangles every order of
delivery ends with the last frame on the server, and for every other rectangle
two frames and one slow connection are enough to leave an old colour behind.
-/

namespace Kernelflut.Loop

open Kernelflut.Pixelflut Kernelflut.Evdi PartialStep FifoDelivery Overwrites

variable {width : ℤ} {rect : EvdiRect} {bgcolor : Word}

/-- A fully refreshed buffer, of which `rect` is blitted. -/
def freshGrab (rect : EvdiRect) (frame : ℤ → Word) : Grab where
  write := fun _ => frame
  rects := [rect]

theorem freshGrab_rects (frame : ℤ → Word) : (freshGrab rect frame).rects = [rect] := rfl

def freshStep (width : ℤ) (rect : EvdiRect) (bgcolor : Word) (s : Sys)
    (frame : ℤ → Word) : Option Sys :=
  updateStep width bgcolor s (freshGrab rect frame)

/-- Whatever the setting, the frames, the server's canvas before them, and the
order of delivery, the server shows the last frame on the rectangle in the
end. -/
def Converges (n : ℕ) (width : ℤ) (rect : EvdiRect) : Prop :=
  ∀ (bgcolor : Word) (c : Client FbId), c.Ready → c.numConns = n → c.lastBuf = none →
    ∀ (frames : List (ℤ → Word)) (last : ℤ → Word) (s : Sys),
      run (freshStep width rect bgcolor) (Sys.start c) (frames ++ [last]) = some s →
        ∀ (canvas : Canvas) (received : List (ℕ × Px)), s.Consumes received →
          ∀ p ∈ rect.pixels, canvasAfter canvas received p = picture last width p

/-! ## One call -/

section Step

variable {s s' : Sys} {frame : ℤ → Word}

/-- The round-robin index moves on by the area. -/
theorem freshStep_client (hy1 : 0 ≤ rect.y1) (ready : s.client.Ready)
    (h : freshStep width rect bgcolor s frame = some s') :
    s'.client.Ready ∧ s'.client.numConns = s.client.numConns ∧
      s'.client.activeConn = (s.client.activeConn + rect.area) % s.client.numConns := by
  obtain ⟨-, -, client, -, -⟩ := updateStep_singleton (freshGrab_rects frame) h
  have counters := pfSetBuf_counters (evdiGet s.buffers (freshGrab rect frame)).1.bufs
    (toggle s.buffers.fbid) width rect bgcolor ready
  rw [length_pfVisits hy1, ← client] at counters
  exact ⟨client ▸ pfSetBuf_ready _ _ _ _ _ ready, counters.2.1, counters.2.2.2.1⟩

/-- The pixels sent, with their connections. -/
theorem mem_sendsOf_freshStep (ready : s.client.Ready)
    (h : freshStep width rect bgcolor s frame = some s') {w : ℕ × Px} :
    w ∈ sendsOf s'.calls ↔ w ∈ sendsOf s.calls ∨
      ∃ k v, (pfVisits width rect)[k]? = some v ∧
        ¬ SkippedAt (evdiGet s.buffers (freshGrab rect frame)).1.bufs s.client
          (toggle s.buffers.fbid) bgcolor k v ∧
        w = ((s.client.activeConn + k) % s.client.numConns,
          Px.ofWord v.x v.y (frame v.i)) := by
  obtain ⟨-, -, -, calls, -⟩ := updateStep_singleton (freshGrab_rects frame) h
  have word : ∀ i, (evdiGet s.buffers (freshGrab rect frame)).1.bufs
      (toggle s.buffers.fbid) i = frame i := by
    intro i
    rw [evdiGet_bufs_self]
    rfl
  rw [calls, sendsOf_append, List.mem_append]
  refine or_congr Iff.rfl ?_
  simp only [sendsOf, List.flatMap_singleton, mem_sends_pfSetBuf ready, word]

end Step

/-! ## Delivery in order -/

/-- What a run keeps when everything is consumed in the order it is sent. -/
structure ShowsLast (width : ℤ) (rect : EvdiRect) (canvas : Canvas) (s : Sys) :
    Prop where
  ready : s.client.Ready
  shows : s.returned = none → ∀ last, s.client.lastBuf = some last →
    last = s.buffers.fbid ∧
      ∀ p ∈ rect.pixels, s.canvas canvas p = picture (s.buffers.bufs last) width p

theorem showsLast_start {c : Client FbId} (ready : c.Ready) (first : c.lastBuf = none)
    (canvas : Canvas) : ShowsLast width rect canvas (Sys.start c) where
  ready := ready
  shows := by simp [Sys.start, first]

section Step

variable {canvas : Canvas} {s s' : Sys} {frame : ℤ → Word}

/-- One call, in order: the rectangle shows the frame. -/
theorem canvas_freshStep (hy1 : 0 ≤ rect.y1) (inv : ShowsLast width rect canvas s)
    (h : freshStep width rect bgcolor s frame = some s') :
    ∀ p ∈ rect.pixels, s'.canvas canvas p = picture frame width p := by
  obtain ⟨running, -⟩ := updateStep_eq_some.mp h
  intro p hp
  rw [canvas_updateStep canvas (freshGrab_rects frame) h]
  refine ((overwrite_commands_pfSetBuf inv.ready hy1 ?_ (List.Perm.refl _)).1 p hp).trans
    ?_
  · intro last hlast q hq
    obtain ⟨rfl, same⟩ := inv.shows running last hlast
    rw [evdiGet_bufs_other]
    exact same q hq
  · rw [evdiGet_bufs_self]
    rfl

theorem ShowsLast.step (hy1 : 0 ≤ rect.y1) (inv : ShowsLast width rect canvas s)
    (h : freshStep width rect bgcolor s frame = some s') :
    ShowsLast width rect canvas s' := by
  obtain ⟨-, buffers, client, -, lastBuf⟩ :=
    updateStep_singleton (freshGrab_rects frame) h
  constructor
  · rw [client]
    exact pfSetBuf_ready _ _ _ _ _ inv.ready
  · intro running last hlast
    obtain rfl := Option.some.inj (hlast.symm.trans (lastBuf running))
    rw [buffers, evdiGet_bufs_self]
    exact ⟨rfl, canvas_freshStep hy1 inv h⟩

end Step

/-! ## The pool size divides the area -/

/-- Every command sent so far went to the connection of its pixel: the one of
the `k`-th turn of a call for the `k`-th pixel visited. -/
def OwnChannel (width : ℤ) (rect : EvdiRect) (n a : ℕ) (s : Sys) : Prop :=
  ∀ w ∈ sendsOf s.calls, ∃ k v, (pfVisits width rect)[k]? = some v ∧
    w.2.pos = v.pos ∧ w.1 = (a + k) % n

/-- As long as the area is a multiple of the pool size, a call leaves the
round-robin index where it found it. -/
theorem ownChannel_freshStep {n a : ℕ} (divides : n ∣ rect.area) (hy1 : 0 ≤ rect.y1)
    {s s' : Sys} {frame : ℤ → Word}
    (h : freshStep width rect bgcolor s frame = some s')
    (inv : s.client.Ready ∧ s.client.numConns = n ∧ s.client.activeConn = a ∧
      OwnChannel width rect n a s) :
    s'.client.Ready ∧ s'.client.numConns = n ∧ s'.client.activeConn = a ∧
      OwnChannel width rect n a s' := by
  obtain ⟨ready, size, index, channels⟩ := inv
  obtain ⟨ready', size', index'⟩ := freshStep_client hy1 ready h
  have unmoved : (a + rect.area) % n = a := by
    rw [Nat.add_mod, (Nat.dvd_iff_mod_eq_zero).mp divides, Nat.add_zero, Nat.mod_mod]
    exact Nat.mod_eq_of_lt (index ▸ size ▸ ready)
  rw [size, index, unmoved] at index'
  refine ⟨ready', size'.trans size, index', ?_⟩
  intro w hw
  rcases (mem_sendsOf_freshStep ready h).mp hw with old | ⟨k, v, hv, -, rfl⟩
  · exact channels w old
  · exact ⟨k, v, hv, rfl, by rw [size, index]⟩

/-- **One connection per pixel**: whatever the order of delivery, the canvas is
the one of delivery in order. -/
theorem canvasAfter_of_ownChannel {n a : ℕ} {s : Sys} (hy1 : 0 ≤ rect.y1)
    (own : OwnChannel width rect n a s) {received : List (ℕ × Px)}
    (h : s.Consumes received) (canvas : Canvas) {p : Pos} (hp : p ∈ rect.pixels) :
    canvasAfter canvas received p = s.canvas canvas p := by
  obtain ⟨k, hk⟩ := exists_turn width hy1 hp
  have only : ∀ w ∈ sendsOf s.calls, decide (w.2.pos = p) = true → w.1 = (a + k) % n := by
    intro w hw here
    obtain ⟨j, v, hj, pos, channel⟩ := own w hw
    rw [channel, turn_unique hj hk (pos.symm.trans (of_decide_eq_true here))]
  have filtered := h.filter_eq (p := fun px => decide (px.pos = p)) only
  rw [canvasAfter, Sys.canvas, ← map_snd_sendsOf]
  apply overwrite_congr_filter
  rw [filter_writes, filter_writes, filtered]

theorem converges_of_dvd {n : ℕ} (divides : n ∣ rect.area) (hy1 : 0 ≤ rect.y1) :
    Converges n width rect := by
  intro bgcolor c ready size first frames last s hrun canvas received consumes p hp
  obtain ⟨s₁, hbefore, hlast⟩ := run_concat_eq_some.mp hrun
  -- In the order of sending the last frame is shown; in any other, every pixel
  -- still gets its own commands in that order.
  have shows : ShowsLast width rect canvas s₁ := invariant_of_run
    (fun inv h => inv.step hy1 h) (showsLast_start ready first canvas) hbefore
  have own := invariant_of_run
    (fun inv h => ownChannel_freshStep divides hy1 h inv)
    (show (Sys.start c).client.Ready ∧ (Sys.start c).client.numConns = n ∧
        (Sys.start c).client.activeConn = c.activeConn ∧
        OwnChannel width rect n c.activeConn (Sys.start c) from
      ⟨ready, size, rfl, by simp [OwnChannel, Sys.start, sendsOf]⟩) hrun
  rw [canvasAfter_of_ownChannel hy1 own.2.2.2 consumes canvas hp]
  exact canvas_freshStep hy1 shows hlast p hp

/-! ## Any other pool size -/

/-- Two frames on a pool that starts at connection 0, and the pixel visited
first: connection 0 carries its colour in the first frame, and never the one in
the second. -/
theorem firstPixel_sends {n : ℕ} (hy1 : 0 ≤ rect.y1)
    (remainder : ¬ n ∣ rect.area) {c : Client FbId} (ready : c.Ready)
    (size : c.numConns = n) (first : c.lastBuf = none) (index : c.activeConn = 0)
    {old new : ℤ → Word} {s₁ s₂ : Sys}
    (h₁ : freshStep width rect pfNoBgcolor (Sys.start c) old = some s₁)
    (h₂ : freshStep width rect pfNoBgcolor s₁ new = some s₂) {v : Visit}
    (hv : (pfVisits width rect)[0]? = some v) :
    (0, Px.ofWord v.x v.y (old v.i)) ∈ sendsOf s₂.calls ∧
      ∀ w ∈ sendsOf s₂.calls, w.1 = 0 → w.2.pos = v.pos →
        w.2.colour = colourOf (old v.i) := by
  obtain ⟨ready₁, size₁, index₁⟩ := freshStep_client hy1 ready h₁
  have sends₁ := @mem_sendsOf_freshStep _ _ _ _ _ _ ready h₁
  have sends₂ := @mem_sendsOf_freshStep _ _ _ _ _ _ ready₁ h₂
  constructor
  · refine sends₂.mpr (Or.inl (sends₁.mpr (Or.inr ⟨0, v, hv, ?_, ?_⟩)))
    · rw [SkippedAt, redundant_pfNoBgcolor]
      rintro ⟨last, hlast, -⟩
      exact Option.some_ne_none last (hlast.symm.trans first)
    · rw [show (Sys.start c).client = c from rfl, index, Nat.zero_mod]
  · intro w hw channel here
    rcases sends₂.mp hw with hw | ⟨k, u, hu, -, rfl⟩
    · rcases sends₁.mp hw with hw | ⟨k, u, hu, -, rfl⟩
      · exact absurd hw List.not_mem_nil
      · obtain rfl := turn_unique hu hv here
        obtain rfl := Option.some.inj (hu.symm.trans hv)
        exact Px.colour_ofWord _ _ _
    · -- The second call starts `area % n` connections further on.
      obtain rfl := turn_unique hu hv here
      refine absurd (Nat.dvd_of_mod_eq_zero ?_) remainder
      have index₁' : s₁.client.activeConn = rect.area % n := by
        rw [index₁, show (Sys.start c).client = c from rfl, index, size, Nat.zero_add]
      have size₁' : s₁.client.numConns = n := size₁.trans size
      simpa [index₁', size₁'] using channel

/-- A connection that waits for all the others leaves an old colour behind. -/
theorem not_converges_of_not_dvd {n : ℕ} (pos : 0 < n) (hy1 : 0 ≤ rect.y1)
    (remainder : ¬ n ∣ rect.area) : ¬ Converges n width rect := by
  intro converges
  let c : Client FbId := Client.connected (List.range n)
  have size : c.numConns = n := List.length_range
  have ready : c.Ready := pos.trans_eq size.symm
  obtain ⟨v, hv⟩ : ∃ v, (pfVisits width rect)[0]? = some v := by
    refine ⟨_, List.getElem?_eq_getElem ?_⟩
    rw [length_pfVisits hy1]
    exact Nat.pos_of_ne_zero fun zero => remainder (zero ▸ dvd_zero n)
  obtain ⟨inside, -⟩ := pixel_of_turn hy1 hv
  obtain ⟨s₁, h₁, running₁⟩ := (show (Sys.start c).Running from ⟨rfl, ready, rfl⟩).updateStep
    width pfNoBgcolor (freshGrab rect fun _ => 0)
  obtain ⟨s₂, h₂, -⟩ := running₁.updateStep width pfNoBgcolor (freshGrab rect fun _ => 1)
  obtain ⟨written, stale⟩ :=
    firstPixel_sends hy1 remainder ready size rfl rfl h₁ h₂ hv
  have hrun : run (freshStep width rect pfNoBgcolor) (Sys.start c)
      ([fun _ => 0] ++ [fun _ => 1]) = some s₂ := by
    refine run_concat_eq_some.mpr ⟨s₁, ?_, h₂⟩
    show (freshStep width rect pfNoBgcolor (Sys.start c) fun _ => 0).bind _ = _
    rw [show freshStep width rect pfNoBgcolor (Sys.start c) (fun _ => 0) = some s₁ from h₁]
    rfl
  have shown := converges pfNoBgcolor c ready size rfl _ _ s₂ hrun (fun _ => 0) _
    (delivers_postpone (sendsOf s₂.calls) 0) v.pos inside
  rw [canvasAfter, List.map_append, writes_append, overwrite_append,
    overwrite_of_forall (v := colourOf 0) ?_ ?_] at shown
  · exact absurd (show colourOf 0 = colourOf 1 from shown) (by decide)
  · rw [map_fst_writes]
    exact List.mem_map.mpr ⟨_, List.mem_map.mpr
      ⟨_, List.mem_filter.mpr ⟨written, by simp⟩, rfl⟩, rfl⟩
  · intro write hwrite here
    obtain ⟨px, hpx, rfl⟩ := List.mem_map.mp hwrite
    obtain ⟨w, hw, rfl⟩ := List.mem_map.mp hpx
    obtain ⟨hw, channel⟩ := List.mem_filter.mp hw
    exact stale w hw (of_decide_eq_true channel) here

/-- **Convergence over the pool.**  On a rectangle blitted again and again, every
run and every order of delivery ends with the last frame on the server if and
only if the number of connections divides the rectangle's area. -/
theorem converges_iff (n : ℕ) (pos : 0 < n) (width : ℤ) (rect : EvdiRect)
    (hy1 : 0 ≤ rect.y1) : Converges n width rect ↔ n ∣ rect.area :=
  ⟨fun converges => by_contra fun remainder =>
      not_converges_of_not_dvd pos hy1 remainder converges,
    fun divides => converges_of_dvd divides hy1⟩

/-- The default pool of eight on the whole screen, which has 480000 pixels. -/
theorem converges_eight_connections : Converges 8 800 ⟨0, 0, 800, 600⟩ :=
  (converges_iff 8 (by decide) 800 ⟨0, 0, 800, 600⟩ (by decide)).mpr (by decide)

/-- One pixel over two connections does not converge. -/
theorem not_converges_two_connections : ¬ Converges 2 800 ⟨0, 0, 1, 1⟩ :=
  not_converges_of_not_dvd (by decide) (by decide) (by decide)

end Kernelflut.Loop
