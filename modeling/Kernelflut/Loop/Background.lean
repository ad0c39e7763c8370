import Kernelflut.Loop.RectangleLists

/-!
# The background colour

With `-b RRGGBB` the program "will refuse to send pixels of that color to
pixelflut, which will avoid ever blitting your background to the screen".  What
`pf_set_buf` tests is less: a background pixel is skipped when the buffer
blitted last holds the same word there.  Before the first frame there is no
such buffer, and a pixel that has just turned into background differs from it.

`background_iff` is the exact condition for a run to keep the promise.  Only
the first rectangle of an update can break it, since the calls for the others
compare the framebuffer with itself.
-/

namespace Kernelflut.Loop

open Kernelflut.Pixelflut Kernelflut.Evdi PartialStep

section Call

variable {B : Type*} {mem : B → ℤ → Word} {fb : B} {width : ℤ} {bgcolor : Word}
  {c : Client B}

/-- The command carries the background colour. -/
def IsBackground (bgcolor : Word) (px : Px) : Prop := px.colour.setWidth 32 = bgcolor

instance (bgcolor : Word) (px : Px) : Decidable (IsBackground bgcolor px) :=
  inferInstanceAs (Decidable (px.colour.setWidth 32 = bgcolor))

theorem isBackground_ofWord {x y : ℤ} {color : Word} :
    IsBackground bgcolor (Px.ofWord x y color) ↔ visible color = bgcolor := by
  rw [IsBackground, Px.colour_ofWord, setWidth_colourOf]

/-- Every background pixel of the rectangle holds its word in the buffer blitted
last already. -/
def BackgroundKept (mem : B → ℤ → Word) (lastBuf : Option B) (fb : B) (width : ℤ)
    (rect : EvdiRect) (bgcolor : Word) : Prop :=
  ∀ v ∈ pfVisits width rect, visible (mem fb v.i) = bgcolor →
    ∃ last, lastBuf = some last ∧ mem last v.i = mem fb v.i

/-- **One call** sends no background pixel exactly when all of them are kept. -/
theorem no_background_iff (ready : c.Ready) (rect : EvdiRect) :
    (∀ px ∈ commands (pfSetBuf mem c fb width rect bgcolor).turns,
        ¬ IsBackground bgcolor px) ↔
      BackgroundKept mem c.lastBuf fb width rect bgcolor := by
  constructor
  · intro none v hv bg
    obtain ⟨k, hk⟩ := List.getElem?_of_mem hv
    by_contra changed
    refine none _ ((mem_commands_pfSetBuf ready).mpr ⟨k, v, hk, ?_, rfl⟩)
      (isBackground_ofWord.mpr bg)
    rw [SkippedAt, redundant_background bg]
    exact changed
  · intro kept px hpx bg
    obtain ⟨k, v, hk, sent, rfl⟩ := (mem_commands_pfSetBuf ready).mp hpx
    rw [isBackground_ofWord] at bg
    rw [SkippedAt, redundant_background bg] at sent
    exact sent (kept v (List.mem_of_getElem? hk) bg)

/-- **One update** sends no background pixel exactly when its first call does
not. -/
theorem blitRects_no_background_iff (ready : c.Ready) (rects : List EvdiRect) :
    (∀ px ∈ commandsOf (blitRects mem fb width bgcolor c rects).calls,
        ¬ IsBackground bgcolor px) ↔
      ∀ rect, rects.head? = some rect →
        BackgroundKept mem c.lastBuf fb width rect bgcolor := by
  cases rects with
  | nil => simp [commandsOf]
  | cons rect rects =>
      simp only [List.head?_cons, Option.some.injEq, forall_eq']
      rw [← no_background_iff ready rect]
      constructor
      · exact fun none px hpx => none px
          (List.mem_flatMap.mpr ⟨_, head_mem_calls_blitRects c rect rects, hpx⟩)
      · intro none px hpx
        obtain ⟨blit, hblit, hpx⟩ := List.mem_flatMap.mp hpx
        rcases mem_calls_blitRects ready hblit with rfl | ⟨c', r, -, ready', last, rfl⟩
        · exact none px hpx
        · -- All its background pixels are in the framebuffer itself.
          exact (no_background_iff ready' r).mpr
            (fun v _ _ => ⟨fb, last, rfl⟩) px hpx

end Call

/-! ## Runs -/

/-- No command so far carries the background colour. -/
def NeverBlitted (bgcolor : Word) (s : Sys) : Prop :=
  ∀ px ∈ commandsOf s.calls, ¬ IsBackground bgcolor px

/-- **The condition**: the first rectangle of the update has no background
pixel, as evdi has just grabbed it, that is not kept. -/
def UpdateKeepsBackground (width : ℤ) (bgcolor : Word) (s : Sys) (grab : Grab) : Prop :=
  ∀ rect, grab.rects.head? = some rect →
    BackgroundKept (evdiGet s.buffers grab).1.bufs s.client.lastBuf
      (toggle s.buffers.fbid) width rect bgcolor

theorem neverBlitted_iff {width : ℤ} {bgcolor : Word} {s s' : Sys} {grab : Grab}
    (ready : s.client.Ready) (sofar : NeverBlitted bgcolor s)
    (h : updateStep width bgcolor s grab = some s') :
    NeverBlitted bgcolor s' ↔ UpdateKeepsBackground width bgcolor s grab := by
  obtain ⟨-, rfl⟩ := updateStep_eq_some.mp h
  unfold NeverBlitted UpdateKeepsBackground
  rw [← blitRects_no_background_iff ready]
  simp only [commandsOf_append, List.mem_append]
  exact ⟨fun none px hpx => none px (Or.inr hpx),
    fun none px hpx => hpx.elim (sofar px) (none px)⟩

/-- **The background colour over a run**, for any pool, any background setting
and any updates: no command carries it exactly when every update keeps it. -/
theorem background_iff (width : ℤ) (bgcolor : Word) (fd : ℕ) (fds : List ℕ)
    (ptActive : Bool) (grabs : List Grab) :
    EachStep (updateStep width bgcolor) (fun _ _ _ s' => NeverBlitted bgcolor s')
        (Sys.start { Client.connected (fd :: fds) with ptActive }) grabs ↔
      EachStep (updateStep width bgcolor)
        (fun _ s grab _ => UpdateKeepsBackground width bgcolor s grab)
        (Sys.start { Client.connected (fd :: fds) with ptActive }) grabs := by
  refine eachStep_iff_of_decided
    (fun _ s => s.client.Ready ∧ NeverBlitted bgcolor s) ?_ ?_ ?_
  · exact ⟨Nat.succ_pos _, by simp [NeverBlitted, Sys.start, commandsOf]⟩
  · rintro before s₁ grab s₂ - ⟨ready, sofar⟩ h
    exact neverBlitted_iff ready sofar h
  · rintro before s₁ grab s₂ - ⟨ready, sofar⟩ h ok
    refine ⟨?_, (neverBlitted_iff ready sofar h).mpr ok⟩
    obtain ⟨-, rfl⟩ := updateStep_eq_some.mp h
    exact blitRects_ready ready grab.rects

/-- A first update, of one pixel, on a desktop that shows only background. -/
def backgroundOnly (bgcolor : Word) : Grab where
  write := refresh 800 ⟨0, 0, 1, 1⟩ fun _ => bgcolor
  rects := [⟨0, 0, 1, 1⟩]

/-- The first update blits the background (`-b 004080`). -/
theorem background_blitted_first :
    (run (updateStep 800 0x004080) (Sys.start (Client.connected [3]))
        [backgroundOnly 0x004080]).map (fun s => commandsOf s.calls) =
      some [⟨0, 0, 0x00, 0x40, 0x80⟩] ∧
    ¬ EachStep (updateStep 800 0x004080)
      (fun _ _ _ s' => NeverBlitted 0x004080 s') (Sys.start (Client.connected [3]))
      [backgroundOnly 0x004080] := by
  have sent : (run (updateStep 800 0x004080) (Sys.start (Client.connected [3]))
      [backgroundOnly 0x004080]).map (fun s => commandsOf s.calls) =
        some [⟨0, 0, 0x00, 0x40, 0x80⟩] := by decide
  refine ⟨sent, fun never => ?_⟩
  obtain ⟨s, hrun, list⟩ := Option.map_eq_some_iff.mp sent
  obtain ⟨-, -, -, none⟩ := EachStep.last [] never hrun
  refine none ⟨0, 0, 0x00, 0x40, 0x80⟩ ?_ (by decide)
  rw [list]
  exact List.mem_singleton_self _

end Kernelflut.Loop
