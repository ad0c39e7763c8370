import Kernelflut.Foundations.Overwrites
import Kernelflut.Pixelflut.SetBuf

/-!
# The contract of one `pf_set_buf` call

`pfSetBuf_contract` states what a single call promises the server: it sends at
most one command per pixel of its rectangle and none outside it, each carrying
the colour the framebuffer has there; and if the canvas showed the buffer
blitted last on the rectangle, it shows the new one there after the commands
are applied, in whatever order they arrive, and is untouched elsewhere.

The hypothesis on the canvas is the whole contract between calls.  Nothing in
`pf_set_buf` establishes it; the modules on `loop` ask when its callers do.
-/

namespace Kernelflut.Pixelflut

open Overwrites

universe u

variable {B : Type u} {mem : B → ℤ → Word} {c : Client B} {fb : B} {width : ℤ}
  {rect : EvdiRect} {bgcolor : Word}

/-- The server's canvas. -/
abbrev Canvas := Pos → Colour

/-- What a list of commands does to a canvas. -/
def writes (cmds : List Px) : List (Pos × Colour) := cmds.map Px.write

@[simp] theorem writes_append (cmds cmds' : List Px) :
    writes (cmds ++ cmds') = writes cmds ++ writes cmds' :=
  List.map_append

theorem map_fst_writes (cmds : List Px) :
    (writes cmds).map Prod.fst = cmds.map Px.pos := by
  simp [writes, Function.comp_def]

theorem filter_writes (cmds : List Px) (p : Pos) :
    (writes cmds).filter (fun w => w.1 = p) = writes (cmds.filter fun px => px.pos = p) :=
  List.filter_map

/-- The picture in a framebuffer of the given width, as the server would show
it. -/
def picture (buf : ℤ → Word) (width : ℤ) : Canvas :=
  fun p => colourOf (buf (p.2 * width + p.1))

/-! ## Statics after a call -/

theorem pfSetBuf_turns :
    (pfSetBuf mem c fb width rect bgcolor).turns =
      (blitPixels mem fb bgcolor c (pfVisits width rect)).2 := by
  unfold pfSetBuf
  simp only
  split
  · split <;> rfl
  · rfl

/-- A call that returns 0 has made its buffer the last one. -/
theorem pfSetBuf_lastBuf (h : (pfSetBuf mem c fb width rect bgcolor).ret = 0) :
    (pfSetBuf mem c fb width rect bgcolor).client.lastBuf = some fb := by
  revert h
  unfold pfSetBuf
  simp only
  split
  · split
    · intro h; simp [exceptionPtFinished] at h
    · intro _; rfl
  · intro _; rfl

section Statics

variable (mem fb width rect bgcolor)

/-- The call records the last trial of the performance test. -/
def LastTrial (c : Client B) : Prop := c.ptActive = true ∧ c.ptTrial + 1 = ptTrials

instance (c : Client B) : Decidable (LastTrial c) :=
  inferInstanceAs (Decidable (c.ptActive = true ∧ c.ptTrial + 1 = ptTrials))

/-- **The end of a call**: what the performance test decides. -/
theorem pfSetBuf_end (ready : c.Ready) :
    let blit := pfSetBuf mem c fb width rect bgcolor
    blit.ret = (if LastTrial c then exceptionPtFinished else 0) ∧
      blit.client.lastBuf = (if LastTrial c then c.lastBuf else some fb) ∧
      blit.client.ptTrial = (if c.ptActive = true then c.ptTrial + 1 else c.ptTrial) ∧
      blit.trial = (if c.ptActive = true then some c.ptTrial else none) := by
  by_cases active : c.ptActive = true
  · by_cases last : c.ptTrial + 1 = ptTrials
    · simp [pfSetBuf, blitPixels_client ready, after, LastTrial, active, last]
    · simp [pfSetBuf, blitPixels_client ready, after, LastTrial, active, last]
  · simp [pfSetBuf, blitPixels_client ready, after, LastTrial, active]

/-- The last buffer is the one just blitted, unless the performance test is
over. -/
theorem pfSetBuf_lastBuf_or (ready : c.Ready) :
    (pfSetBuf mem c fb width rect bgcolor).client.lastBuf = some fb ∨
      (pfSetBuf mem c fb width rect bgcolor).client.lastBuf = c.lastBuf := by
  obtain ⟨-, lastBuf, -⟩ := pfSetBuf_end mem fb width rect bgcolor ready
  rw [lastBuf]
  split
  · exact Or.inr rfl
  · exact Or.inl rfl

/-- Outside the performance test every call returns 0. -/
theorem pfSetBuf_ret (ready : c.Ready) (off : c.ptActive = false) :
    (pfSetBuf mem c fb width rect bgcolor).ret = 0 := by
  have notLast : ¬ LastTrial c := by simp [LastTrial, off]
  rw [(pfSetBuf_end mem fb width rect bgcolor ready).1, if_neg notLast]

/-- The pool's part of the statics: both counters advance by the number of
visits, whatever the return code. -/
theorem pfSetBuf_counters (ready : c.Ready) :
    let c' := (pfSetBuf mem c fb width rect bgcolor).client
    let visits := (pfVisits width rect).length
    c'.conns = c.conns ∧ c'.numConns = c.numConns ∧ c'.ptActive = c.ptActive ∧
      c'.activeConn = (c.activeConn + visits) % c.numConns ∧
      c'.skipReblit =
        if visits = 0 then c.skipReblit
        else (c.skipReblit + visits) % reblitFrequency := by
  simp only [pfSetBuf, blitPixels_client ready]
  split
  · split <;> exact ⟨rfl, rfl, rfl, rfl, rfl⟩
  · exact ⟨rfl, rfl, rfl, rfl, rfl⟩

/-- A call leaves the pool usable. -/
theorem pfSetBuf_ready (ready : c.Ready) :
    (pfSetBuf mem c fb width rect bgcolor).client.Ready := by
  obtain ⟨-, size, -, index, -⟩ := pfSetBuf_counters mem fb width rect bgcolor ready
  rw [Client.Ready, size, index]
  exact Nat.mod_lt _ ready.numConns_pos

end Statics

/-! ## Which commands a call sends -/

/-- The turn of a visit. -/
theorem getElem?_turns_pfSetBuf (ready : c.Ready) (k : ℕ) :
    (pfSetBuf mem c fb width rect bgcolor).turns[k]? =
      ((pfVisits width rect)[k]?).map (turnAt mem fb bgcolor c k) := by
  rw [pfSetBuf_turns, blitPixels_turns ready, List.getElem?_mapIdx]

/-- The pixel visited at turn `k` is skipped. -/
def SkippedAt (mem : B → ℤ → Word) (c : Client B) (fb : B) (bgcolor : Word)
    (k : ℕ) (v : Visit) : Prop :=
  redundant mem c.lastBuf bgcolor v.i (mem fb v.i)
    ((c.skipReblit + k + 1) % reblitFrequency) = true

/-- The commands are those of the turns that are not skipped, and the `k`-th
turn writes on the `k`-th connection after the active one. -/
theorem mem_sends_pfSetBuf (ready : c.Ready) {w : ℕ × Px} :
    w ∈ sends (pfSetBuf mem c fb width rect bgcolor).turns ↔
      ∃ k v, (pfVisits width rect)[k]? = some v ∧ ¬ SkippedAt mem c fb bgcolor k v ∧
        w = ((c.activeConn + k) % c.numConns, Px.ofWord v.x v.y (mem fb v.i)) := by
  rw [pfSetBuf_turns, blitPixels_turns ready]
  simp only [sends, List.mem_filterMap, List.mem_mapIdx, SkippedAt,
    List.getElem?_eq_some_iff, Option.map_eq_some_iff]
  constructor
  · rintro ⟨_, ⟨k, bound, rfl⟩, px, hcmd, rfl⟩
    refine ⟨k, _, ⟨bound, rfl⟩, ?_⟩
    simp only [turnAt] at hcmd
    split at hcmd
    · cases hcmd
    · next sent => exact ⟨sent, Prod.ext rfl (Option.some.inj hcmd).symm⟩
  · rintro ⟨k, _, ⟨bound, rfl⟩, sent, rfl⟩
    exact ⟨_, ⟨k, bound, rfl⟩, _, if_neg sent, rfl⟩

theorem mem_commands_pfSetBuf (ready : c.Ready) {px : Px} :
    px ∈ commands (pfSetBuf mem c fb width rect bgcolor).turns ↔
      ∃ k v, (pfVisits width rect)[k]? = some v ∧
        ¬ SkippedAt mem c fb bgcolor k v ∧ px = Px.ofWord v.x v.y (mem fb v.i) := by
  rw [← map_snd_sends]
  simp only [List.mem_map, mem_sends_pfSetBuf ready]
  constructor
  · rintro ⟨_, ⟨k, v, hv, sent, rfl⟩, rfl⟩
    exact ⟨k, v, hv, sent, rfl⟩
  · rintro ⟨k, v, hv, sent, rfl⟩
    exact ⟨_, ⟨k, v, hv, sent, rfl⟩, rfl⟩

/-- The pixels a call sends. -/
theorem mem_map_pos_commands_pfSetBuf (ready : c.Ready) {p : Pos} :
    p ∈ (commands (pfSetBuf mem c fb width rect bgcolor).turns).map Px.pos ↔
      ∃ k v, (pfVisits width rect)[k]? = some v ∧ v.pos = p ∧
        ¬ SkippedAt mem c fb bgcolor k v := by
  simp only [List.mem_map, mem_commands_pfSetBuf ready]
  constructor
  · rintro ⟨_, ⟨k, v, hv, sent, rfl⟩, rfl⟩
    exact ⟨k, v, hv, rfl, sent⟩
  · rintro ⟨k, v, hv, rfl, sent⟩
    exact ⟨_, ⟨k, v, hv, sent, rfl⟩, rfl⟩

theorem blitPixel_cmd (mem : B → ℤ → Word) (fb : B) (bgcolor : Word) (c : Client B)
    (v : Visit) :
    (blitPixel mem fb bgcolor c v).2.cmd = none ∨
      (blitPixel mem fb bgcolor c v).2.cmd =
        some (Px.ofWord v.x v.y (mem fb v.i)) := by
  unfold blitPixel
  simp only
  split
  · exact Or.inl rfl
  · exact Or.inr rfl

/-- The commands come in visiting order, some visits left out. -/
theorem commands_blitPixels_sublist (vs : List Visit) :
    ((commands (blitPixels mem fb bgcolor c vs).2).map Px.pos).Sublist
      (vs.map Visit.pos) := by
  induction vs generalizing c with
  | nil => exact List.Sublist.refl _
  | cons v vs ih =>
      have rest := @ih (blitPixel mem fb bgcolor c v).1
      rw [blitPixels]
      simp only [commands, List.filterMap_cons]
      rcases blitPixel_cmd mem fb bgcolor c v with skipped | sent
      · rw [skipped]
        exact rest.cons _
      · rw [sent]
        exact rest.cons_cons _

/-- No pixel is sent twice. -/
theorem commands_pfSetBuf_nodup :
    ((commands (pfSetBuf mem c fb width rect bgcolor).turns).map Px.pos).Nodup := by
  rw [pfSetBuf_turns]
  exact pfVisits_map_pos_nodup.sublist (commands_blitPixels_sublist _)

/-- Every command carries the picture in the framebuffer. -/
theorem carry_commands_pfSetBuf (ready : c.Ready) (hy1 : 0 ≤ rect.y1) :
    Carry (picture (mem fb) width)
      (writes (commands (pfSetBuf mem c fb width rect bgcolor).turns)) := by
  intro w hw
  obtain ⟨px, hpx, rfl⟩ := List.mem_map.mp hw
  obtain ⟨k, v, hv, -, rfl⟩ := (mem_commands_pfSetBuf ready).mp hpx
  obtain ⟨-, index⟩ := pixel_of_turn hy1 hv
  simp [picture, index]

/-- Every command is for a pixel of the rectangle. -/
theorem pos_mem_pixels_of_mem_commands (ready : c.Ready) (hy1 : 0 ≤ rect.y1)
    {px : Px} (h : px ∈ commands (pfSetBuf mem c fb width rect bgcolor).turns) :
    px.pos ∈ rect.pixels := by
  obtain ⟨k, v, hv, -, rfl⟩ := (mem_commands_pfSetBuf ready).mp h
  exact (pixel_of_turn hy1 hv).1

/-- A pixel of the rectangle that is not sent holds the same word in the buffer
blitted last. -/
theorem exists_last_of_not_sent (ready : c.Ready) (hy1 : 0 ≤ rect.y1) {p : Pos}
    (hp : p ∈ rect.pixels)
    (h : p ∉ (commands (pfSetBuf mem c fb width rect bgcolor).turns).map Px.pos) :
    ∃ last, c.lastBuf = some last ∧
      mem last (p.2 * width + p.1) = mem fb (p.2 * width + p.1) := by
  obtain ⟨k, hk⟩ := exists_turn width hy1 hp
  by_contra differs
  refine h ((mem_map_pos_commands_pfSetBuf ready).mpr ⟨k, _, hk, rfl, ?_⟩)
  exact fun skipped => differs (exists_last_of_redundant skipped)

/-- **The canvas after a call.**  If it showed `last_buf` on the rectangle, it
shows `fb` there and is unchanged elsewhere, whatever the order in which the
commands arrive. -/
theorem overwrite_commands_pfSetBuf (ready : c.Ready) (hy1 : 0 ≤ rect.y1)
    {canvas : Canvas}
    (shown : ∀ last, c.lastBuf = some last →
      ∀ p ∈ rect.pixels, canvas p = picture (mem last) width p)
    {order : List Px}
    (perm : order.Perm (commands (pfSetBuf mem c fb width rect bgcolor).turns)) :
    (∀ p ∈ rect.pixels,
      overwrite canvas (writes order) p = picture (mem fb) width p) ∧
      ∀ p ∉ rect.pixels, overwrite canvas (writes order) p = canvas p := by
  refine overwrite_patch (carry_commands_pfSetBuf ready hy1) ?_ ?_
    (perm.map Px.write)
  · intro w hw
    obtain ⟨px, hpx, rfl⟩ := List.mem_map.mp hw
    exact pos_mem_pixels_of_mem_commands ready hy1 hpx
  · intro p hp unsent
    rw [map_fst_writes] at unsent
    obtain ⟨last, hlast, same⟩ := exists_last_of_not_sent ready hy1 hp unsent
    rw [shown last hlast p hp, picture, picture, same]

/-! ## Without a background colour -/

/-- In this mode the skip condition is the bare comparison with `last_buf`. -/
theorem mem_commands_pfNoBgcolor (ready : c.Ready) (hy1 : 0 ≤ rect.y1) {px : Px} :
    px ∈ commands (pfSetBuf mem c fb width rect pfNoBgcolor).turns ↔
      ∃ p ∈ rect.pixels,
        (∀ last, c.lastBuf = some last →
          mem last (p.2 * width + p.1) ≠ mem fb (p.2 * width + p.1)) ∧
        px = Px.ofWord p.1 p.2 (mem fb (p.2 * width + p.1)) := by
  rw [mem_commands_pfSetBuf ready]
  simp only [SkippedAt, redundant_pfNoBgcolor, not_exists, not_and]
  constructor
  · rintro ⟨k, v, hv, sent, rfl⟩
    obtain ⟨inside, index⟩ := pixel_of_turn hy1 hv
    rw [index] at sent ⊢
    exact ⟨v.pos, inside, sent, rfl⟩
  · rintro ⟨p, hp, sent, rfl⟩
    obtain ⟨k, hk⟩ := exists_turn width hy1 hp
    exact ⟨k, _, hk, sent, rfl⟩

theorem mem_sent_pfNoBgcolor (ready : c.Ready) (hy1 : 0 ≤ rect.y1) {p : Pos} :
    p ∈ (commands (pfSetBuf mem c fb width rect pfNoBgcolor).turns).map Px.pos ↔
      p ∈ rect.pixels ∧ ∀ last, c.lastBuf = some last →
        mem last (p.2 * width + p.1) ≠ mem fb (p.2 * width + p.1) := by
  simp only [List.mem_map, mem_commands_pfNoBgcolor ready hy1]
  constructor
  · rintro ⟨_, ⟨p, hp, sent, rfl⟩, rfl⟩
    exact ⟨hp, sent⟩
  · rintro ⟨hp, sent⟩
    exact ⟨_, ⟨p, hp, sent, rfl⟩, rfl⟩

/-- Every pixel that `last_buf` would make the call skip is one the canvas
already shows. -/
def SkipsTruly (mem : B → ℤ → Word) (lastBuf : Option B) (fb : B) (width : ℤ)
    (rect : EvdiRect) (canvas : Canvas) : Prop :=
  ∀ p ∈ rect.pixels, ∀ last, lastBuf = some last →
    mem last (p.2 * width + p.1) = mem fb (p.2 * width + p.1) →
      canvas p = picture (mem fb) width p

variable (mem fb width) in
/-- **When a call repaints its rectangle.**  Its commands applied in order make
the canvas agree with `fb` on the rectangle exactly when what it skips was
already shown; outside the rectangle nothing changes. -/
theorem overwrite_pfNoBgcolor (ready : c.Ready) (hy1 : 0 ≤ rect.y1)
    (canvas : Canvas) :
    let cmds := commands (pfSetBuf mem c fb width rect pfNoBgcolor).turns
    ((∀ p ∈ rect.pixels,
        overwrite canvas (writes cmds) p = picture (mem fb) width p) ↔
      SkipsTruly mem c.lastBuf fb width rect canvas) ∧
    ∀ p ∉ rect.pixels, overwrite canvas (writes cmds) p = canvas p := by
  intro cmds
  have outcome : ∀ p, overwrite canvas (writes cmds) p =
      if p ∈ cmds.map Px.pos then picture (mem fb) width p else canvas p := by
    intro p
    rw [overwrite_of_carry (carry_commands_pfSetBuf ready hy1)]
    simp only [map_fst_writes, cmds]
  have sent : ∀ p, p ∈ cmds.map Px.pos ↔ p ∈ rect.pixels ∧ ∀ last,
      c.lastBuf = some last →
        mem last (p.2 * width + p.1) ≠ mem fb (p.2 * width + p.1) :=
    fun p => mem_sent_pfNoBgcolor ready hy1
  constructor
  · constructor
    · intro shows p hp last hlast same
      rw [← shows p hp, outcome, if_neg]
      exact fun h => ((sent p).mp h).2 last hlast same
    · intro truly p hp
      rw [outcome]
      split
      · rfl
      · next unsent =>
          obtain ⟨last, hlast, same⟩ := exists_last_of_not_sent ready hy1 hp unsent
          exact truly p hp last hlast same
  · intro p hp
    rw [outcome, if_neg]
    exact fun h => hp ((sent p).mp h).1

/-! ## The contract -/

/-- **The contract of `pf_set_buf`.**  The commands of a call go to pixels of
the rectangle, at most one each, and carry the low 24 bits of `fb` there.  If
the canvas agrees with the picture in `last_buf` on the rectangle (no condition
when it is `NULL`), then the commands applied in any order make it agree with
`fb` on the rectangle and leave it unchanged outside. -/
theorem pfSetBuf_contract (mem : B → ℤ → Word) (c : Client B) (fb : B) (width : ℤ)
    (rect : EvdiRect) (bgcolor : Word) (ready : c.Ready) (hy1 : 0 ≤ rect.y1) :
    let cmds := commands (pfSetBuf mem c fb width rect bgcolor).turns
    (cmds.map Px.pos).Nodup ∧
    (∀ px ∈ cmds, px.pos ∈ rect.pixels ∧
      px.colour = colourOf (mem fb (px.y * width + px.x))) ∧
    ∀ canvas : Canvas,
      (∀ last, c.lastBuf = some last →
        ∀ p ∈ rect.pixels, canvas p = picture (mem last) width p) →
      ∀ order, order.Perm cmds →
        (∀ p ∈ rect.pixels,
          overwrite canvas (writes order) p = picture (mem fb) width p) ∧
        ∀ p ∉ rect.pixels, overwrite canvas (writes order) p = canvas p := by
  intro cmds
  have carry : Carry (picture (mem fb) width) (writes cmds) :=
    carry_commands_pfSetBuf ready hy1
  refine ⟨commands_pfSetBuf_nodup, fun px hpx => ⟨?_, ?_⟩, ?_⟩
  · exact pos_mem_pixels_of_mem_commands ready hy1 hpx
  · exact carry px.write (List.mem_map_of_mem hpx)
  · exact fun canvas shown order perm =>
      overwrite_commands_pfSetBuf ready hy1 shown perm

/-- Two connections, a buffer that differs from the last one at one of two
pixels: the contract for this call, and the command it sends. -/
theorem pfSetBuf_contract_two_pixels :
    let mem : Bool → ℤ → Word := fun b i => if b && i == 801 then 0xff0000 else 0
    let c : Client Bool :=
      { (Client.connected [3, 4] : Client Bool) with lastBuf := some false }
    let cmds := commands (pfSetBuf mem c true 800 ⟨0, 1, 2, 2⟩ pfNoBgcolor).turns
    cmds = [⟨1, 1, 0xff, 0, 0⟩] ∧
    ∀ canvas : Canvas,
      (∀ p ∈ (⟨0, 1, 2, 2⟩ : EvdiRect).pixels, canvas p = picture (mem false) 800 p) →
        overwrite canvas (writes cmds) (1, 1) = 0xff0000 := by
  intro mem c cmds
  refine ⟨by decide, fun canvas shown => ?_⟩
  obtain ⟨-, -, agrees⟩ := pfSetBuf_contract mem c true 800 ⟨0, 1, 2, 2⟩ pfNoBgcolor
    (by decide) (by decide)
  refine ((agrees canvas ?_ cmds (List.Perm.refl _)).1 (1, 1) (by decide)).trans
    (by decide)
  intro last hlast p hp
  obtain rfl : false = last := Option.some.inj hlast
  exact shown p hp

end Kernelflut.Pixelflut
